import AiStorage.Lib.Text

/-!
# Reading comma-separated values

The reader of Python's `csv` module in its default dialect, over text whose line ends are kept:
a line ends after a line feed, or after a carriage return that no line feed follows.
-/
namespace AiStorage.Lib.Csv

def comma : CodePoint := CodePoint.ofChar ','

def dquote : CodePoint := CodePoint.ofChar '"'

def lf : CodePoint := CodePoint.ofChar '\n'

def cr : CodePoint := CodePoint.ofChar '\r'

/-! ## The parser -/

inductive State where
  | startRecord
  | startField
  | inField
  | inQuotedField
  | quoteInQuotedField
  | eatCrnl
  deriving DecidableEq

structure Parser where
  state : State := .startRecord
  fields : List Text := []
  field : Text := []

inductive Error where
  | fieldLimit
  | newline
  deriving DecidableEq

def fieldLimit : Nat := 131072

namespace Parser

def saveField (p : Parser) (state : State) : Parser where
  state := state
  fields := p.fields ++ [p.field]
  field := []

def addChar (p : Parser) (c : CodePoint) (state : State) : Except Error Parser :=
  if fieldLimit ≤ p.field.length then .error .fieldLimit
  else .ok { p with state := state, field := p.field ++ [c] }

/-- The case `START_FIELD` of `parse_process_char`. -/
def startFieldChar (p : Parser) (c : CodePoint) : Except Error Parser :=
  if c = lf || c = cr then .ok (p.saveField .eatCrnl)
  else if c = dquote then .ok { p with state := .inQuotedField }
  else if c = comma then .ok (p.saveField .startField)
  else p.addChar c .inField

def processChar (p : Parser) (c : CodePoint) : Except Error Parser :=
  match p.state with
  | .startRecord =>
    if c = lf || c = cr then .ok { p with state := .eatCrnl } else p.startFieldChar c
  | .startField => p.startFieldChar c
  | .inField =>
    if c = lf || c = cr then .ok (p.saveField .eatCrnl)
    else if c = comma then .ok (p.saveField .startField)
    else p.addChar c .inField
  | .inQuotedField =>
    if c = dquote then .ok { p with state := .quoteInQuotedField } else p.addChar c .inQuotedField
  | .quoteInQuotedField =>
    if c = dquote then p.addChar c .inQuotedField
    else if c = comma then .ok (p.saveField .startField)
    else if c = lf || c = cr then .ok (p.saveField .eatCrnl)
    else p.addChar c .inField
  | .eatCrnl => if c = lf || c = cr then .ok p else .error .newline

/-- `parse_process_char` of the end of a line. -/
def endLine (p : Parser) : Parser :=
  match p.state with
  | .startRecord | .inQuotedField => p
  | .startField | .inField | .quoteInQuotedField => p.saveField .startRecord
  | .eatCrnl => { p with state := .startRecord }

end Parser

def lineEnds (c : CodePoint) (rest : Text) : Bool := c = lf || (c = cr && rest.head? ≠ some lf)

/-- The records that the reader yields from the text on; `midLine` when the line at hand
has begun. -/
def records : Text → Bool → Parser → Except Error (List (List Text))
  | [], midLine, p =>
    let p := if midLine then p.endLine else p
    if midLine && p.state = .startRecord then .ok [p.fields]
    else if p.field ≠ [] || p.state = .inQuotedField then .ok [p.fields ++ [p.field]]
    else .ok []
  | c :: rest, _, p =>
    match p.processChar c with
    | .error error => .error error
    | .ok p =>
      if lineEnds c rest then
        if p.endLine.state = .startRecord then (records rest false {}).map (p.endLine.fields :: ·)
        else records rest false p.endLine
      else records rest true p

/-- A row as a dictionary: later columns of one name win, and a name without a column has
no value. -/
def dictGet (fieldnames row : List Text) (name : Text) : Option Text :=
  (fieldnames.zip row).reverse.lookup name

def dictReader (source : Text) : Except Error (List (Text → Option Text)) :=
  match records source false {} with
  | .error error => .error error
  | .ok [] => .ok []
  | .ok (fieldnames :: rows) => .ok ((rows.filter (· ≠ [])).map (dictGet fieldnames))

/-! ## Text that is read back -/

/-- Text that has to be quoted. -/
def special (v : Text) : Bool := v.any fun c => c = comma || c = dquote || c = lf

def doubled (v : Text) : Text := v.flatMap fun c => if c = dquote then [dquote, dquote] else [c]

/-- The quoting that separates, quotes and line feeds need. -/
def quoted (v : Text) : Text := if special v then dquote :: (doubled v ++ [dquote]) else v

section Characters

variable {c : CodePoint} {rest : Text} {flag : Bool} {p q : Parser}

theorem records_flag (c : CodePoint) (rest : Text) (flag : Bool) (p : Parser) :
    records (c :: rest) flag p = records (c :: rest) true p := by
  rw [records, records]

theorem lineEnds_inside (noLf : c ≠ lf) (noCr : c ≠ cr) (rest : Text) :
    lineEnds c rest = false := by
  simp [lineEnds, noLf, noCr]

theorem records_inside (char : p.processChar c = .ok q) (inside : lineEnds c rest = false) :
    records (c :: rest) flag p = records rest true q := by
  rw [records, char]
  simp only [inside, Bool.false_eq_true, if_false]

theorem records_error {error : Error} (char : p.processChar c = .error error) :
    records (c :: rest) flag p = .error error := by
  rw [records, char]

theorem records_lineEnd (char : p.processChar c = .ok q) (ends : lineEnds c rest = true)
    (eaten : q.state = .eatCrnl) :
    records (c :: rest) flag p = (records rest false {}).map (q.fields :: ·) := by
  have closed : q.endLine = { q with state := .startRecord } := by rw [Parser.endLine, eaten]
  rw [records, char]
  simp only [ends, if_true, closed]

end Characters

/-! ### Quoted text -/

section Quoted

variable {fields : List Text} {field : Text}

theorem processChar_quoted {c : CodePoint} (other : c ≠ dquote) :
    Parser.processChar ⟨.inQuotedField, fields, field⟩ c =
      if fieldLimit ≤ field.length then .error .fieldLimit
      else .ok ⟨.inQuotedField, fields, field ++ [c]⟩ := if_neg other

theorem records_quoted_char {c : CodePoint} (other : c ≠ dquote) (d : CodePoint) (rest : Text)
    (flag : Bool) (room : field.length < fieldLimit) :
    records (c :: d :: rest) flag ⟨.inQuotedField, fields, field⟩ =
      records (d :: rest) true ⟨.inQuotedField, fields, field ++ [c]⟩ := by
  have char : Parser.processChar ⟨.inQuotedField, fields, field⟩ c =
      .ok ⟨.inQuotedField, fields, field ++ [c]⟩ := by
    rw [processChar_quoted other, if_neg (Nat.not_le.mpr room)]
  cases ends : lineEnds c (d :: rest) with
  | false => exact records_inside char ends
  | true =>
    rw [records, char]
    simp only [ends, if_true]
    rw [if_neg State.noConfusion]
    exact records_flag d rest false _

theorem records_pair (rest : Text) (flag : Bool) :
    records (dquote :: dquote :: rest) flag ⟨.inQuotedField, fields, field⟩ =
      if field.length < fieldLimit then
        records rest true ⟨.inQuotedField, fields, field ++ [dquote]⟩
      else .error .fieldLimit := by
  have first : Parser.processChar ⟨.inQuotedField, fields, field⟩ dquote =
      .ok ⟨.quoteInQuotedField, fields, field⟩ := rfl
  have second : Parser.processChar ⟨.quoteInQuotedField, fields, field⟩ dquote =
      if fieldLimit ≤ field.length then .error .fieldLimit
      else .ok ⟨.inQuotedField, fields, field ++ [dquote]⟩ := rfl
  rw [records_inside first rfl]
  split_ifs with room
  · rw [if_neg (Nat.not_le.mpr room)] at second
    exact records_inside second rfl
  · rw [if_pos (Nat.not_lt.mp room)] at second
    exact records_error second

theorem doubled_cons_dquote (v : Text) :
    doubled (dquote :: v) = dquote :: dquote :: doubled v := rfl

theorem doubled_cons {c : CodePoint} (other : c ≠ dquote) (v : Text) :
    doubled (c :: v) = c :: doubled v := by
  rw [doubled, List.flatMap_cons, if_neg other]
  rfl

/-- Doubled text inside quotes is read as it was, unless the field gets too long. -/
theorem records_doubled (v rest : Text) : ∀ (flag : Bool) (field : Text),
    field.length ≤ fieldLimit →
    records (doubled v ++ dquote :: rest) flag ⟨.inQuotedField, fields, field⟩ =
      if field.length + v.length ≤ fieldLimit then
        records (dquote :: rest) true ⟨.inQuotedField, fields, field ++ v⟩
      else .error .fieldLimit := by
  induction v with
  | nil =>
    intro flag field room
    rw [if_pos (show field.length + ([] : Text).length ≤ fieldLimit from room), List.append_nil]
    exact records_flag dquote rest flag _
  | cons c v later =>
    intro flag field room
    have longer : (field ++ [c]).length + v.length = field.length + (c :: v).length := by
      simp only [List.length_append, List.length_cons, List.length_nil]
      omega
    have joined : field ++ [c] ++ v = field ++ c :: v := by simp
    have step : field.length < fieldLimit →
        records (doubled v ++ dquote :: rest) true ⟨.inQuotedField, fields, field ++ [c]⟩ =
          if field.length + (c :: v).length ≤ fieldLimit then
            records (dquote :: rest) true ⟨.inQuotedField, fields, field ++ c :: v⟩
          else .error .fieldLimit := by
      intro space
      have onwards := later true (field ++ [c]) (by simp; omega)
      rwa [longer, joined] at onwards
    by_cases same : c = dquote
    · subst same
      rw [doubled_cons_dquote, List.cons_append, List.cons_append, records_pair]
      split_ifs with space fits fits
      · rw [step space, if_pos fits]
      · rw [step space, if_neg fits]
      · simp only [List.length_cons] at fits
        omega
      · rfl
    · rw [doubled_cons same, List.cons_append]
      by_cases space : field.length < fieldLimit
      · obtain ⟨d, more, next⟩ := List.exists_cons_of_ne_nil
          (List.append_ne_nil_of_right_ne_nil (doubled v) (List.cons_ne_nil dquote rest))
        rw [← step space, next]
        exact records_quoted_char same d more flag space
      · have char : Parser.processChar ⟨.inQuotedField, fields, field⟩ c = .error .fieldLimit := by
          rw [processChar_quoted same, if_pos (Nat.not_lt.mp space)]
        rw [records_error char, if_neg]
        simp only [List.length_cons]
        omega

end Quoted

/-! ### Text without special characters -/

section Plain

variable {fields : List Text}

def Plain (v : Text) : Prop := ∀ c ∈ v, c ≠ comma ∧ c ≠ dquote ∧ c ≠ lf ∧ c ≠ cr

instance (v : Text) : Decidable (Plain v) :=
  decidable_of_iff (v.all fun c => c ≠ comma ∧ c ≠ dquote ∧ c ≠ lf ∧ c ≠ cr)
    (by simp only [List.all_eq_true, decide_eq_true_eq, Plain])

theorem processChar_inField {c : CodePoint} {field : Text}
    (plain : c ≠ comma ∧ c ≠ dquote ∧ c ≠ lf ∧ c ≠ cr) :
    Parser.processChar ⟨.inField, fields, field⟩ c =
      if fieldLimit ≤ field.length then .error .fieldLimit
      else .ok ⟨.inField, fields, field ++ [c]⟩ := by
  obtain ⟨noComma, -, noLf, noCr⟩ := plain
  simp [Parser.processChar, noComma, noLf, noCr, Parser.addChar]

theorem records_inField (v : Text) (d : CodePoint) (rest : Text) (plain : Plain v) :
    ∀ (flag : Bool) (field : Text), field.length ≤ fieldLimit →
    records (v ++ d :: rest) flag ⟨.inField, fields, field⟩ =
      if field.length + v.length ≤ fieldLimit then
        records (d :: rest) true ⟨.inField, fields, field ++ v⟩
      else .error .fieldLimit := by
  induction v with
  | nil =>
    intro flag field room
    rw [if_pos (show field.length + ([] : Text).length ≤ fieldLimit from room), List.append_nil]
    exact records_flag d rest flag _
  | cons c v later =>
    intro flag field room
    obtain ⟨first, others⟩ := List.forall_mem_cons.mp plain
    have char := @processChar_inField fields c field first
    rw [List.cons_append]
    by_cases space : field.length < fieldLimit
    · have onwards := later others true (field ++ [c]) (by simp; omega)
      have longer : (field ++ [c]).length + v.length = field.length + (c :: v).length := by
        simp only [List.length_append, List.length_cons, List.length_nil]
        omega
      rw [longer, List.append_assoc, List.singleton_append] at onwards
      rw [if_neg (Nat.not_le.mpr space)] at char
      rw [records_inside char (lineEnds_inside first.2.2.1 first.2.2.2 _), onwards]
    · rw [if_pos (Nat.not_lt.mp space)] at char
      rw [records_error char, if_neg]
      simp only [List.length_cons]
      omega

end Plain

/-! ### Cells and rows -/

section Cells

def cellStart (fields : List Text) : Parser :=
  ⟨if fields = [] then .startRecord else .startField, fields, []⟩

def cellDone (fields : List Text) (v : Text) : Parser :=
  if special v then ⟨.quoteInQuotedField, fields, v⟩
  else if v = [] then cellStart fields
  else ⟨.inField, fields, v⟩

/-- The record that a line feed behind a cell completes; an empty line has no field. -/
def rowEnd (fields : List Text) (v : Text) : List Text :=
  if fields = [] ∧ v = [] then [] else fields ++ [v]

/-- A carriage return stands only in text that is quoted. -/
def Framed (v : Text) : Prop := cr ∈ v → special v = true

variable {fields : List Text} {v rest : Text} {flag : Bool}

theorem special_eq_false (plain : special v = false) :
    ∀ c ∈ v, c ≠ comma ∧ c ≠ dquote ∧ c ≠ lf := by
  intro c member
  have none := List.any_eq_false.mp plain c member
  simp only [Bool.or_eq_true, decide_eq_true_eq, not_or] at none
  exact ⟨none.1.1, none.1.2, none.2⟩

theorem plain_of_framed (framed : Framed v) (open_ : special v = false) : Plain v := by
  intro c member
  obtain ⟨noComma, noQuote, noLf⟩ := special_eq_false open_ c member
  refine ⟨noComma, noQuote, noLf, ?_⟩
  intro isCr
  rw [framed (isCr ▸ member)] at open_
  cases open_

theorem startFieldChar_plain {c : CodePoint} (plain : c ≠ comma ∧ c ≠ dquote ∧ c ≠ lf ∧ c ≠ cr) :
    (cellStart fields).processChar c = .ok ⟨.inField, fields, [c]⟩ := by
  obtain ⟨noComma, noQuote, noLf, noCr⟩ := plain
  by_cases first : fields = []
  · simp [cellStart, first, Parser.processChar, Parser.startFieldChar, noComma, noQuote, noLf, noCr,
      Parser.addChar, fieldLimit]
  · simp [cellStart, first, Parser.processChar, Parser.startFieldChar, noComma, noQuote, noLf, noCr,
      Parser.addChar, fieldLimit]

theorem startFieldChar_dquote :
    (cellStart fields).processChar dquote = .ok ⟨.inQuotedField, fields, []⟩ := by
  by_cases first : fields = []
  · rw [cellStart, if_pos first]
    rfl
  · rw [cellStart, if_neg first]
    rfl

theorem records_cell (framed : Framed v) (sep : CodePoint) (rest : Text) (flag : Bool) :
    records (quoted v ++ sep :: rest) flag (cellStart fields) =
      if v.length ≤ fieldLimit then records (sep :: rest) true (cellDone fields v)
      else .error .fieldLimit := by
  cases kind : special v with
  | true =>
    have closing : Parser.processChar ⟨.inQuotedField, fields, v⟩ dquote =
        .ok ⟨.quoteInQuotedField, fields, v⟩ := rfl
    have text : quoted v ++ sep :: rest = dquote :: (doubled v ++ dquote :: (sep :: rest)) := by
      simp [quoted, kind]
    rw [text, records_inside startFieldChar_dquote rfl,
      records_doubled v (sep :: rest) true [] (Nat.zero_le _), cellDone, kind, if_pos rfl]
    simp only [List.length_nil, Nat.zero_add, List.nil_append]
    rw [records_inside closing rfl]
  | false =>
    have plain := plain_of_framed framed kind
    have text : quoted v = v := by simp [quoted, kind]
    rw [text, cellDone, kind, if_neg Bool.false_ne_true]
    cases v with
    | nil =>
      rw [if_pos rfl, if_pos (show ([] : Text).length ≤ fieldLimit from Nat.zero_le _)]
      exact records_flag sep rest flag _
    | cons c v =>
      obtain ⟨first, others⟩ := List.forall_mem_cons.mp plain
      rw [if_neg (List.cons_ne_nil c v), List.cons_append,
        records_inside (startFieldChar_plain first) (lineEnds_inside first.2.2.1 first.2.2.2 _),
        records_inField v sep rest others true [c]
          (show 1 ≤ fieldLimit by decide)]
      simp only [List.length_cons, List.length_nil, Nat.zero_add, List.singleton_append,
        Nat.add_comm 1]

theorem records_comma (fields : List Text) (v rest : Text) (flag : Bool) :
    records (comma :: rest) flag (cellDone fields v) =
      records rest true (cellStart (fields ++ [v])) := by
  have next : cellStart (fields ++ [v]) = ⟨.startField, fields ++ [v], []⟩ := by
    rw [cellStart, if_neg (List.append_ne_nil_of_right_ne_nil fields (List.cons_ne_nil v []))]
  have char : (cellDone fields v).processChar comma = .ok (cellStart (fields ++ [v])) := by
    rw [next, cellDone]
    split_ifs with kind empty
    · rfl
    · by_cases first : fields = []
      · rw [cellStart, if_pos first, empty]
        rfl
      · rw [cellStart, if_neg first, empty]
        rfl
    · rfl
  exact records_inside char rfl

theorem records_lf (fields : List Text) (v rest : Text) (flag : Bool) :
    records (lf :: rest) flag (cellDone fields v) =
      (records rest false {}).map (rowEnd fields v :: ·) := by
  have char : (cellDone fields v).processChar lf = .ok ⟨.eatCrnl, rowEnd fields v, []⟩ := by
    rw [cellDone]
    split_ifs with kind empty
    · have filled : v ≠ [] := by
        intro none
        rw [none] at kind
        cases kind
      rw [rowEnd, if_neg fun both => filled both.2]
      rfl
    · rw [cellStart, rowEnd, empty]
      by_cases first : fields = []
      · rw [if_pos first, if_pos ⟨first, rfl⟩, first]
        rfl
      · rw [if_neg first, if_neg fun both => first both.1]
        rfl
    · rw [rowEnd, if_neg fun both => empty both.2]
      rfl
  exact records_lineEnd char rfl rfl

def rowText : List Text → Text
  | [] => [lf]
  | [v] => quoted v ++ [lf]
  | v :: w :: more => quoted v ++ comma :: rowText (w :: more)

/-- The record that a row is read as, with the fields in front of it. -/
def rowRecord (fields cells : List Text) : List Text :=
  if fields = [] ∧ cells = [[]] then [] else fields ++ cells

theorem quoted_ne_nil {v : Text} (filled : v ≠ []) : quoted v ≠ [] := by
  rw [quoted]
  split_ifs
  · exact List.cons_ne_nil _ _
  · exact filled

theorem two_le_length_rowText {cells : List Text} (some : cells ≠ []) (filled : cells ≠ [[]]) :
    2 ≤ (rowText cells).length := by
  cases cells with
  | nil => exact absurd rfl some
  | cons v more =>
    cases more with
    | nil =>
      have text : quoted v ≠ [] := quoted_ne_nil fun none => filled (by rw [none])
      have length := List.length_pos_iff.mpr text
      simp only [rowText, List.length_append, List.length_singleton]
      omega
    | cons w more =>
      have last : 1 ≤ (rowText (w :: more)).length := by
        cases more with
        | nil => simp [rowText]
        | cons u more =>
          simp only [rowText, List.length_append, List.length_cons]
          omega
      simp only [rowText, List.length_append, List.length_cons]
      omega

theorem mem_rowText {cells : List Text} {c : CodePoint} (member : c ∈ rowText cells) :
    c = comma ∨ c = dquote ∨ c = lf ∨ ∃ v ∈ cells, c ∈ v := by
  have fromCell : ∀ v : Text, c ∈ quoted v → c = dquote ∨ c ∈ v := by
    intro v inside
    rw [quoted] at inside
    split_ifs at inside
    · simp only [List.mem_cons, List.mem_append, List.not_mem_nil, or_false, doubled,
        List.mem_flatMap] at inside
      rcases inside with first | ⟨d, from_, own⟩ | last
      · exact .inl first
      · split_ifs at own with same
        · simp only [List.mem_cons, List.not_mem_nil, or_false, or_self] at own
          exact .inl own
        · rw [List.mem_singleton.mp own]
          exact .inr from_
      · exact .inl last
    · exact .inr inside
  induction cells with
  | nil => exact .inr (.inr (.inl (List.mem_singleton.mp member)))
  | cons v more later =>
    cases more with
    | nil =>
      rcases List.mem_append.mp member with inCell | last
      · rcases fromCell v inCell with quote | own
        · exact .inr (.inl quote)
        · exact .inr (.inr (.inr ⟨v, List.mem_cons_self, own⟩))
      · exact .inr (.inr (.inl (List.mem_singleton.mp last)))
    | cons w more =>
      rcases List.mem_append.mp member with inCell | behind
      · rcases fromCell v inCell with quote | own
        · exact .inr (.inl quote)
        · exact .inr (.inr (.inr ⟨v, List.mem_cons_self, own⟩))
      · rcases List.mem_cons.mp behind with separator | onwards
        · exact .inl separator
        · rcases later onwards with isComma | isQuote | isLf | ⟨u, inside, own⟩
          · exact .inl isComma
          · exact .inr (.inl isQuote)
          · exact .inr (.inr (.inl isLf))
          · exact .inr (.inr (.inr ⟨u, List.mem_cons_of_mem v inside, own⟩))

theorem records_row (cells : List Text) : ∀ (fields : List Text) (flag : Bool), cells ≠ [] →
    (∀ v ∈ cells, Framed v) →
    records (rowText cells ++ rest) flag (cellStart fields) =
      if ∀ v ∈ cells, v.length ≤ fieldLimit then
        (records rest false {}).map (rowRecord fields cells :: ·)
      else .error .fieldLimit := by
  induction cells with
  | nil =>
    intro fields flag some
    exact absurd rfl some
  | cons v more later =>
    intro fields flag _ framed
    obtain ⟨here, others⟩ := List.forall_mem_cons.mp framed
    cases more with
    | nil =>
      have last : rowRecord fields [v] = rowEnd fields v := by simp [rowRecord, rowEnd]
      rw [rowText, List.append_assoc, List.singleton_append, records_cell here, last,
        records_lf]
      simp only [List.forall_mem_singleton]
    | cons w more =>
      have next := later (fields ++ [v]) true (List.cons_ne_nil w more) others
      have joined : rowRecord (fields ++ [v]) (w :: more) = rowRecord fields (v :: w :: more) := by
        simp [rowRecord]
      rw [joined] at next
      rw [rowText, List.append_assoc, List.cons_append, records_cell here, records_comma, next]
      by_cases short : v.length ≤ fieldLimit
      · have all : (∀ u ∈ v :: w :: more, u.length ≤ fieldLimit) ↔
            ∀ u ∈ w :: more, u.length ≤ fieldLimit := by
          rw [List.forall_mem_cons, and_iff_right short]
        rw [if_pos short]
        simp only [all]
      · rw [if_neg short, if_neg fun all => short (all v List.mem_cons_self)]

/-- Rows whose carriage returns are quoted are read as they were, unless a cell is too
long. -/
theorem records_table (table : List (List Text)) (filled : ∀ cells ∈ table, cells ≠ [])
    (framed : ∀ cells ∈ table, ∀ v ∈ cells, Framed v) :
    records (table.flatMap rowText) false {} =
      if ∀ cells ∈ table, ∀ v ∈ cells, v.length ≤ fieldLimit then
        .ok (table.map (rowRecord []))
      else .error .fieldLimit := by
  induction table with
  | nil =>
    rw [if_pos fun cells member => by cases member]
    rfl
  | cons cells others later =>
    have row := @records_row (others.flatMap rowText) cells [] false
      (filled cells List.mem_cons_self) (framed cells List.mem_cons_self)
    have rest := later (fun other member => filled other (List.mem_cons_of_mem _ member))
      fun other member => framed other (List.mem_cons_of_mem _ member)
    change records (rowText cells ++ others.flatMap rowText) false (cellStart []) = _
    rw [row, rest]
    by_cases short : ∀ v ∈ cells, v.length ≤ fieldLimit
    · have all : (∀ row ∈ cells :: others, ∀ v ∈ row, v.length ≤ fieldLimit) ↔
          ∀ row ∈ others, ∀ v ∈ row, v.length ≤ fieldLimit := by
        rw [List.forall_mem_cons, and_iff_right short]
      rw [if_pos short]
      simp only [all]
      split_ifs
      · rfl
      · rfl
    · rw [if_neg short, if_neg fun all => short (all cells List.mem_cons_self)]

end Cells

/-! ## Carriage returns outside quotes -/

section Outside

variable {c : CodePoint} {p q : Parser}

theorem processChar_outside (open_ : p.state ≠ .inQuotedField)
    (closed : p.state ≠ .quoteInQuotedField) (other : c ≠ dquote) (char : p.processChar c = .ok q) :
    ((c = lf ∨ c = cr) ∧ (q = p.saveField .eatCrnl ∨ q = { p with state := .eatCrnl })) ∨
    (c = comma ∧ q = p.saveField .startField) ∨
    (c ≠ lf ∧ c ≠ cr ∧ c ≠ comma ∧ p.field.length < fieldLimit ∧
      q = { p with state := .inField, field := p.field ++ [c] }) := by
  obtain ⟨state, fields, field⟩ := p
  by_cases ends : c = lf ∨ c = cr
  · have ended : (decide (c = lf) || decide (c = cr)) = true := by simpa using ends
    refine .inl ⟨ends, ?_⟩
    cases state with
    | startRecord | eatCrnl =>
      simp only [Parser.processChar, ended, if_true, Except.ok.injEq] at char
      exact .inr char.symm
    | startField | inField =>
      simp only [Parser.processChar, Parser.startFieldChar, ended, if_true, Except.ok.injEq] at char
      exact .inl char.symm
    | inQuotedField => exact absurd rfl open_
    | quoteInQuotedField => exact absurd rfl closed
  · have goesOn : (decide (c = lf) || decide (c = cr)) = false := by simpa using ends
    have added : (if c = comma then
          Except.ok (Parser.saveField ⟨state, fields, field⟩ .startField)
        else Parser.addChar ⟨state, fields, field⟩ c .inField) = .ok q := by
      cases state with
      | startRecord | startField | inField =>
        simpa [Parser.processChar, Parser.startFieldChar, goesOn, other] using char
      | inQuotedField => exact absurd rfl open_
      | quoteInQuotedField => exact absurd rfl closed
      | eatCrnl => simp [Parser.processChar, goesOn] at char
    apply Or.inr
    by_cases isComma : c = comma
    · rw [if_pos isComma, Except.ok.injEq] at added
      exact .inl ⟨isComma, added.symm⟩
    · rw [if_neg isComma, Parser.addChar] at added
      split_ifs at added with full
      rw [Except.ok.injEq] at added
      obtain ⟨noLf, noCr⟩ := not_or.mp ends
      exact .inr ⟨noLf, noCr, isComma, Nat.not_le.mp full, added.symm⟩

/-- A field that quoted or plain text could have given. -/
structure Sound (v : Text) : Prop where
  framed : Framed v
  short : v.length ≤ fieldLimit

instance (v : Text) : Decidable (Sound v) :=
  decidable_of_iff ((cr ∈ v → special v = true) ∧ v.length ≤ fieldLimit)
    ⟨fun both => ⟨both.1, both.2⟩, fun sound => ⟨sound.framed, sound.short⟩⟩

/-- Outside quotes, with sound fields so far and no carriage return in the one at hand. -/
structure Unquoted (p : Parser) : Prop where
  open_ : p.state ≠ .inQuotedField
  closed : p.state ≠ .quoteInQuotedField
  fields : ∀ v ∈ p.fields, Sound v
  noCr : cr ∉ p.field
  short : p.field.length ≤ fieldLimit

def Ready (p : Parser) : Prop := ∃ fields, p = cellStart fields ∧ ∀ v ∈ fields, Sound v

theorem Unquoted.saved (here : Unquoted p) (state : State) :
    ∀ v ∈ (p.saveField state).fields, Sound v := by
  intro v member
  rcases List.mem_append.mp member with before | last
  · exact here.fields v before
  · rw [List.mem_singleton.mp last]
    exact ⟨fun isCr => absurd isCr here.noCr, here.short⟩

theorem Ready.unquoted (ready : Ready p) : Unquoted p := by
  obtain ⟨fields, rfl, sound⟩ := ready
  have outside : (cellStart fields).state = .startRecord ∨
      (cellStart fields).state = .startField := by
    rw [cellStart]
    exact ite_eq_or_eq _ _ _
  refine ⟨?_, ?_, sound, List.not_mem_nil, Nat.zero_le _⟩
  · rcases outside with state | state <;> simp [state]
  · rcases outside with state | state <;> simp [state]

theorem ready_start : Ready {} := ⟨[], rfl, fun _ member => absurd member List.not_mem_nil⟩

/-- From a parser in `before`, the text either raises an error or yields sound records and
leads to a parser in `after`. -/
def Passes (before : Parser → Prop) (piece : Text) (after : Parser → Prop) : Prop :=
  ∀ rest flag p out, before p → records (piece ++ rest) flag p = .ok out →
    ∃ next q front back, after q ∧ (∀ record ∈ front, ∀ v ∈ record, Sound v) ∧
      records rest next q = .ok back ∧ out = front ++ back

theorem Passes.nil {before : Parser → Prop} : Passes before [] before := by
  intro rest flag p out here read
  exact ⟨flag, p, [], out, here, by simp, read, rfl⟩

theorem Passes.append {before middle after : Parser → Prop} {s t : Text}
    (first : Passes before s middle) (second : Passes middle t after) :
    Passes before (s ++ t) after := by
  intro rest flag p out here read
  rw [List.append_assoc] at read
  obtain ⟨next, q, front, back, there, sound, readOn, rfl⟩ := first _ flag p out here read
  obtain ⟨last, r, front', back', final, sound', readOn', rfl⟩ :=
    second rest next q back there readOn
  refine ⟨last, r, front ++ front', back', final, ?_, readOn', (List.append_assoc _ _ _).symm⟩
  intro record member
  rcases List.mem_append.mp member with inFirst | inSecond
  · exact sound record inFirst
  · exact sound' record inSecond

theorem Passes.of_ready {after : Parser → Prop} {s : Text} (passes : Passes Unquoted s after) :
    Passes Ready s after := by
  intro rest flag p out here read
  exact passes rest flag p out here.unquoted read

variable {out : List (List Text)}

theorem records_map_ok {rest : Text} {record : List Text}
    (read : (records rest false {}).map (record :: ·) = .ok out) :
    ∃ back, records rest false {} = .ok back ∧ out = record :: back := by
  cases later : records rest false {} with
  | error error =>
    rw [later] at read
    cases read
  | ok back =>
    rw [later] at read
    cases read
    exact ⟨back, rfl, rfl⟩

theorem Unquoted.ended (here : Unquoted p) (ends : c = lf ∨ c = cr)
    (saved : q = p.saveField .eatCrnl ∨ q = { p with state := .eatCrnl })
    (char : p.processChar c = .ok q) {rest : Text} {flag : Bool}
    (read : records (c :: rest) flag p = .ok out) :
    (∃ record back, (∀ v ∈ record, Sound v) ∧ records rest false {} = .ok back ∧
      out = record :: back) ∨
    (c = cr ∧ Unquoted q ∧ records rest true q = .ok out) := by
  have eaten : q.state = .eatCrnl := by
    rcases saved with rfl | rfl <;> rfl
  have sound : ∀ v ∈ q.fields, Sound v := by
    rcases saved with rfl | rfl
    · exact here.saved .eatCrnl
    · exact here.fields
  cases line : lineEnds c rest with
  | true =>
    rw [records_lineEnd char line eaten] at read
    obtain ⟨back, readOn, out_eq⟩ := records_map_ok read
    exact .inl ⟨q.fields, back, sound, readOn, out_eq⟩
  | false =>
    rw [records_inside char line] at read
    have isCr : c = cr := by
      rcases ends with rfl | isCr
      · cases line
      · exact isCr
    refine .inr ⟨isCr, ⟨?_, ?_, sound, ?_, ?_⟩, read⟩
    · simp [eaten]
    · simp [eaten]
    · rcases saved with rfl | rfl
      · exact List.not_mem_nil
      · exact here.noCr
    · rcases saved with rfl | rfl
      · exact Nat.zero_le _
      · exact here.short

theorem Unquoted.char (here : Unquoted p) (other : c ≠ dquote) {rest : Text} {flag : Bool}
    (read : records (c :: rest) flag p = .ok out) :
    (∃ record back, (c = lf ∨ c = cr) ∧ (∀ v ∈ record, Sound v) ∧
      records rest false {} = .ok back ∧ out = record :: back) ∨
    (∃ q, Unquoted q ∧ c ≠ lf ∧ (c = comma → Ready q) ∧ records rest true q = .ok out) := by
  cases char : p.processChar c with
  | error error =>
    rw [records_error char] at read
    cases read
  | ok q =>
    rcases processChar_outside here.open_ here.closed other char with
      ⟨ends, saved⟩ | ⟨isComma, next⟩ | ⟨noLf, noCr, noComma, room, next⟩
    · rcases here.ended ends saved char read with
        ⟨record, back, sound, readOn, out_eq⟩ | ⟨isCr, there, readOn⟩
      · exact .inl ⟨record, back, ends, sound, readOn, out_eq⟩
      · subst isCr
        exact .inr ⟨q, there, by decide, fun isComma => absurd isComma (by decide), readOn⟩
    · subst isComma
      rw [records_inside char rfl] at read
      have ready : Ready q := by
        refine ⟨q.fields, ?_, ?_⟩
        · simp [next, Parser.saveField, cellStart]
        · rw [next]
          exact here.saved .startField
      exact .inr ⟨q, ready.unquoted, by decide, fun _ => ready, read⟩
    · rw [records_inside char (lineEnds_inside noLf noCr rest)] at read
      refine .inr ⟨q, ?_, noLf, fun isComma => absurd isComma noComma, read⟩
      rw [next]
      refine ⟨State.noConfusion, State.noConfusion, here.fields, ?_, ?_⟩
      · simp [here.noCr, Ne.symm noCr]
      · simp only [List.length_append, List.length_singleton]
        omega

theorem passes_char (other : c ≠ dquote) : Passes Unquoted [c] Unquoted := by
  intro rest flag p out here read
  rcases here.char other read with ⟨record, back, -, sound, readOn, rfl⟩ | ⟨q, there, -, -, readOn⟩
  · exact ⟨false, {}, [record], back, ready_start.unquoted, by simpa using sound, readOn, rfl⟩
  · exact ⟨true, q, [], out, there, by simp, readOn, rfl⟩

theorem passes_lf : Passes Unquoted [lf] Ready := by
  intro rest flag p out here read
  rcases here.char (by decide) read with ⟨record, back, -, sound, readOn, rfl⟩ | ⟨q, -, noLf, -⟩
  · exact ⟨false, {}, [record], back, ready_start, by simpa using sound, readOn, rfl⟩
  · exact absurd rfl noLf

theorem passes_comma : Passes Unquoted [comma] Ready := by
  intro rest flag p out here read
  rcases here.char (by decide) read with ⟨record, back, ends, -⟩ | ⟨q, -, -, ready, readOn⟩
  · exact absurd ends (by decide)
  · exact ⟨true, q, [], out, ready rfl, by simp, readOn, rfl⟩

theorem passes_text (v : Text) (none : dquote ∉ v) : Passes Unquoted v Unquoted := by
  induction v with
  | nil => exact Passes.nil
  | cons c v later =>
    rw [List.mem_cons, not_or] at none
    exact Passes.append (passes_char (Ne.symm none.1)) (later none.2)

theorem passes_plain {v : Text} {sep : CodePoint} (ends : Passes Unquoted [sep] Ready)
    (plain : special v = false) : Passes Ready (quoted v ++ [sep]) Ready := by
  have text : quoted v = v := by simp [quoted, plain]
  have none : dquote ∉ v := fun member => (special_eq_false plain dquote member).2.1 rfl
  rw [text]
  exact ((passes_text v none).append ends).of_ready

theorem passes_cell (v : Text) : Passes Ready (quoted v ++ [comma]) Ready := by
  cases kind : special v with
  | false => exact passes_plain passes_comma kind
  | true =>
    intro rest flag p out here read
    obtain ⟨fields, rfl, sound⟩ := here
    rw [List.append_assoc, List.singleton_append, records_cell fun _ => kind] at read
    split_ifs at read with short
    rw [records_comma] at read
    exact ⟨true, _, [], out, ⟨fields ++ [v], rfl, List.forall_mem_append.mpr
      ⟨sound, List.forall_mem_singleton.mpr ⟨fun _ => kind, short⟩⟩⟩, by simp, read, rfl⟩

theorem passes_lastCell (v : Text) : Passes Ready (quoted v ++ [lf]) Ready := by
  cases kind : special v with
  | false => exact passes_plain passes_lf kind
  | true =>
    intro rest flag p out here read
    obtain ⟨fields, rfl, sound⟩ := here
    rw [List.append_assoc, List.singleton_append, records_cell fun _ => kind] at read
    split_ifs at read with short
    rw [records_lf] at read
    obtain ⟨back, readOn, rfl⟩ := records_map_ok read
    refine ⟨false, _, [rowEnd fields v], back, ready_start, ?_, readOn, rfl⟩
    intro record member
    rw [List.mem_singleton.mp member, rowEnd]
    split_ifs
    · exact List.forall_mem_nil _
    · exact List.forall_mem_append.mpr
        ⟨sound, List.forall_mem_singleton.mpr ⟨fun _ => kind, short⟩⟩

theorem passes_row (cells : List Text) : Passes Ready (rowText cells) Ready := by
  induction cells with
  | nil => exact passes_lf.of_ready
  | cons v more later =>
    cases more with
    | nil => exact passes_lastCell v
    | cons w more =>
      have joined : rowText (v :: w :: more) = (quoted v ++ [comma]) ++ rowText (w :: more) := by
        simp [rowText]
      rw [joined]
      exact (passes_cell v).append later

theorem passes_table (table : List (List Text)) : Passes Ready (table.flatMap rowText) Ready := by
  induction table with
  | nil => exact Passes.nil
  | cons cells others later => exact (passes_row cells).append later

theorem records_rest_sound {flag : Bool} (ready : Ready p)
    (read : records [] flag p = .ok out) : ∀ record ∈ out, ∀ v ∈ record, Sound v := by
  obtain ⟨fields, rfl, sound⟩ := ready
  have blank : Sound [] := ⟨fun member => absurd member List.not_mem_nil, Nat.zero_le _⟩
  have saved : ∀ v ∈ fields ++ [[]], Sound v := by
    simpa [or_imp, forall_and] using ⟨sound, blank⟩
  cases flag with
  | false =>
    by_cases first : fields = []
    · simp [records, cellStart, first] at read
      simp [read]
    · simp [records, cellStart, first] at read
      simp [read]
  | true =>
    by_cases first : fields = []
    · simp [records, cellStart, first, Parser.endLine] at read
      simp [← read]
    · simp [records, cellStart, first, Parser.endLine, Parser.saveField] at read
      simpa [← read] using saved

/-- Whatever the rows held, each field read back is short, and has a carriage return only
where it needed quotes. -/
theorem records_sound {table : List (List Text)}
    (read : records (table.flatMap rowText) false {} = .ok out) :
    ∀ record ∈ out, ∀ v ∈ record, Sound v := by
  have whole : records (table.flatMap rowText ++ []) false {} = .ok out := by
    rwa [List.append_nil]
  obtain ⟨next, q, front, back, ⟨fields, rfl, sound⟩, before, last, rfl⟩ :=
    passes_table table [] false {} out ready_start whole
  have after : ∀ record ∈ back, ∀ v ∈ record, Sound v :=
    records_rest_sound ⟨fields, rfl, sound⟩ last
  intro record member
  rcases List.mem_append.mp member with first | second
  · exact before record first
  · exact after record second

end Outside

end AiStorage.Lib.Csv
