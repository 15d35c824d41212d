import AiStorage.Lib.JsonString

/-!
# `json.dumps` and `json.loads`

What is read back from a written value is `norm` of it: tuples are lists, keys are strings,
surrogate pairs are joined. The interpreter's limits on nesting depth and on the digits of an
integer are not modelled.
-/
namespace AiStorage.Lib

@[elab_as_elim]
theorem PyVal.nested {motive : PyVal → Prop} (none : motive .none) (bool : ∀ b, motive (.bool b))
    (int : ∀ n, motive (.int n)) (float : ∀ x, motive (.float x)) (str : ∀ s, motive (.str s))
    (list : ∀ items, (∀ v ∈ items, motive v) → motive (.list items))
    (tuple : ∀ items, (∀ v ∈ items, motive v) → motive (.tuple items))
    (dict : ∀ items, (∀ item ∈ items, motive item.2) → motive (.dict items))
    (object : ∀ id, motive (.object id)) (v : PyVal) : motive v := by
  refine @PyVal.rec motive (fun items => ∀ v ∈ items, motive v)
    (fun items => ∀ item ∈ items, motive item.2) (fun item => motive item.2)
    none bool int float str list tuple dict object ?_ ?_ ?_ ?_ ?_ v
  · exact List.forall_mem_nil _
  · exact fun _ _ first rest => List.forall_mem_cons.mpr ⟨first, rest⟩
  · exact List.forall_mem_nil _
  · exact fun _ _ first rest => List.forall_mem_cons.mpr ⟨first, rest⟩
  · exact fun _ _ value => value

/-! ## Writing -/

inductive JsonStyle where
  /-- `separators=(", ", ": ")` -/
  | default
  /-- `separators=(",", ":")` -/
  | compact

def JsonStyle.pad : JsonStyle → Text
  | .default => [ch ' ']
  | .compact => []

def PyKey.name : PyKey → Text
  | .none => text "null"
  | .bool true => text "true"
  | .bool false => text "false"
  | .int n => intText n
  | .float x => floatText x
  | .str s => s
  | .object _ => []

def PyKey.isStr : PyKey → Bool
  | .str _ => true
  | _ => false

def PyKey.isNumber : PyKey → Bool
  | .bool _ | .int _ | .float _ => true
  | _ => false

/-- Can `sort_keys` compare them? -/
def sortableKeys (keys : List PyKey) : Bool :=
  keys.length ≤ 1 || keys.all PyKey.isStr || keys.all PyKey.isNumber

def PyKey.encodable (allowNan : Bool) : PyKey → Bool
  | .float x => allowNan || x.isFinite
  | .object _ => false
  | _ => true

namespace PyVal

mutual

/-- Does `json.dumps(v, sort_keys=True, allow_nan=…)` return? -/
def encodable (allowNan : Bool) : PyVal → Bool
  | .float x => allowNan || x.isFinite
  | .list items | .tuple items => encodableList allowNan items
  | .dict items =>
    sortableKeys ((dictItems items).map Prod.fst) &&
      (dictItems (encodableItems allowNan items)).all fun item =>
        item.1.encodable allowNan && item.2
  | .object _ => false
  | _ => true

def encodableList (allowNan : Bool) : List PyVal → Bool
  | [] => true
  | v :: rest => v.encodable allowNan && encodableList allowNan rest

def encodableItems (allowNan : Bool) : List (PyKey × PyVal) → List (PyKey × Bool)
  | [] => []
  | (k, v) :: rest => (k, v.encodable allowNan) :: encodableItems allowNan rest

end

def commaSeparated (pad : Text) : List Text → Text
  | [] => []
  | [part] => part
  | part :: rest => part ++ ch ',' :: (pad ++ commaSeparated pad rest)

def member (style : JsonStyle) (item : PyKey × Text) : Text :=
  quoted escapeAscii item.1.name ++ ch ':' :: (style.pad ++ item.2)

mutual

def print (style : JsonStyle) : PyVal → Text
  | .none => text "null"
  | .bool true => text "true"
  | .bool false => text "false"
  | .int n => intText n
  | .float x => floatText x
  | .str s => quoted escapeAscii s
  | .list items | .tuple items =>
    ch '[' :: (commaSeparated style.pad (printList style items) ++ [ch ']'])
  | .dict items =>
    ch '\x7b' :: (commaSeparated style.pad ((dictItems (printItems style items)).map (member style))
      ++ [ch '\x7d'])
  | .object _ => []

def printList (style : JsonStyle) : List PyVal → List Text
  | [] => []
  | v :: rest => v.print style :: printList style rest

def printItems (style : JsonStyle) : List (PyKey × PyVal) → List (PyKey × Text)
  | [] => []
  | (k, v) :: rest => (k, v.print style) :: printItems style rest

end

/-- `json.dumps(v, sort_keys=True)`; `none` is its `TypeError`. -/
def dumps (style : JsonStyle) (v : PyVal) : Option Text :=
  if v.encodable true then some (v.print style) else Option.none

end PyVal

/-! ## Reading -/

def isSpace (c : CodePoint) : Bool :=
  c = ch ' ' || c.val = 9 || c.val = 10 || c.val = 13

def skipSpace (input : Text) : Text := input.dropWhile isSpace

/-- What follows a fixed word at the front. -/
def dropWord (word input : Text) : Option Text :=
  if word.isPrefixOf input then some (input.drop word.length) else none

def parseNumberToken (input : Text) : Option (PyVal × Text) :=
  match parseNumber (input.takeWhile isNumberChar) with
  | some v => some (v, input.dropWhile isNumberChar)
  | none => (dropWord (text "-Infinity") input).map fun rest => (.float (.infinite true), rest)

def parseScalar : Text → Option (PyVal × Text)
  | [] => none
  | c :: rest =>
    if c = ch '"' then (scanString rest).map fun (s, rest) => (.str s, rest)
    else if isNumberChar c then parseNumberToken (c :: rest)
    else if c = ch 'n' then (dropWord (text "ull") rest).map fun rest => (.none, rest)
    else if c = ch 't' then (dropWord (text "rue") rest).map fun rest => (.bool true, rest)
    else if c = ch 'f' then (dropWord (text "alse") rest).map fun rest => (.bool false, rest)
    else if c = ch 'N' then (dropWord (text "aN") rest).map fun rest => (.float .nan, rest)
    else if c = ch 'I' then
      (dropWord (text "nfinity") rest).map fun rest => (.float (.infinite false), rest)
    else none

mutual

def parseValue : Nat → Text → Option (PyVal × Text)
  | 0, _ => none
  | _, [] => none
  | fuel + 1, c :: rest =>
    if c = ch '[' then
      if (skipSpace rest).head? = some (ch ']') then some (.list [], (skipSpace rest).tail)
      else (parseItems fuel (skipSpace rest)).map fun (items, rest) => (.list items, rest)
    else if c = ch '\x7b' then
      if (skipSpace rest).head? = some (ch '\x7d') then some (.dict [], (skipSpace rest).tail)
      else (parseMembers fuel (skipSpace rest)).map fun (items, rest) => (.dict items, rest)
    else parseScalar (c :: rest)

def parseItems : Nat → Text → Option (List PyVal × Text)
  | 0, _ => none
  | fuel + 1, input =>
    match parseValue fuel input with
    | none => none
    | some (v, rest) =>
      match skipSpace rest with
      | [] => none
      | c :: rest =>
        if c = ch ']' then some ([v], rest)
        else if c = ch ',' then
          (parseItems fuel (skipSpace rest)).map fun (items, rest) => (v :: items, rest)
        else none

def parseMembers : Nat → Text → Option (List (PyKey × PyVal) × Text)
  | 0, _ => none
  | _, [] => none
  | fuel + 1, q :: input =>
    if q ≠ ch '"' then none
    else
      match scanString input with
      | none => none
      | some (key, rest) =>
        match skipSpace rest with
        | [] => none
        | colon :: rest =>
          if colon ≠ ch ':' then none
          else
            match parseValue fuel (skipSpace rest) with
            | none => none
            | some (v, rest) =>
              match skipSpace rest with
              | [] => none
              | c :: rest =>
                if c = ch '\x7d' then some ([(.str key, v)], rest)
                else if c = ch ',' then
                  (parseMembers fuel (skipSpace rest)).map fun (items, rest) =>
                    ((.str key, v) :: items, rest)
                else none

end

/-- `json.loads(s)`; `none` is `JSONDecodeError`. Every nested call has consumed a
character, so the fuel is never used up. -/
def loads (s : Text) : Option PyVal :=
  match parseValue (2 * s.length + 1) (skipSpace s) with
  | none => none
  | some (v, rest) => if (skipSpace rest).isEmpty then some v else none

/-! ## What is read back -/

namespace PyVal

mutual

/-- `json.loads(json.dumps(v))` of a value that can be written. -/
def norm : PyVal → PyVal
  | .str s => .str (joinSurrogates s)
  | .list items | .tuple items => .list (normList items)
  | .dict items =>
    .dict ((dictItems (normItems items)).map fun item =>
      (.str (joinSurrogates item.1.name), item.2))
  | .none => .none
  | .bool b => .bool b
  | .int n => .int n
  | .float x => .float x
  | .object id => .object id

def normList : List PyVal → List PyVal
  | [] => []
  | v :: rest => v.norm :: normList rest

def normItems : List (PyKey × PyVal) → List (PyKey × PyVal)
  | [] => []
  | (k, v) :: rest => (k, v.norm) :: normItems rest

end

@[simp] theorem encodableList_eq_all (allowNan : Bool) (items : List PyVal) :
    encodableList allowNan items = items.all (encodable allowNan) := by
  induction items with
  | nil => rfl
  | cons head tail ih => simp [encodableList, ih]

@[simp] theorem encodableItems_eq_map (allowNan : Bool) (items : List (PyKey × PyVal)) :
    encodableItems allowNan items = items.map fun item => (item.1, item.2.encodable allowNan) := by
  induction items with
  | nil => rfl
  | cons head tail ih => simp [encodableItems, ih]

variable (style : JsonStyle)

@[simp] theorem printList_eq_map (items : List PyVal) :
    printList style items = items.map (print style) := by
  induction items with
  | nil => rfl
  | cons head tail ih => simp [printList, ih]

@[simp] theorem printItems_eq_map (items : List (PyKey × PyVal)) :
    printItems style items = items.map fun item => (item.1, item.2.print style) := by
  induction items with
  | nil => rfl
  | cons head tail ih => simp [printItems, ih]

@[simp] theorem normList_eq_map (items : List PyVal) : normList items = items.map norm := by
  induction items with
  | nil => rfl
  | cons head tail ih => simp [normList, ih]

@[simp] theorem normItems_eq_map (items : List (PyKey × PyVal)) :
    normItems items = items.map fun item => (item.1, item.2.norm) := by
  induction items with
  | nil => rfl
  | cons head tail ih => simp [normItems, ih]

theorem encodable_dict (allowNan : Bool) (items : List (PyKey × PyVal)) :
    (PyVal.dict items).encodable allowNan =
      (sortableKeys ((dictItems items).map Prod.fst) &&
        (dictItems items).all fun item =>
          item.1.encodable allowNan && item.2.encodable allowNan) := by
  simp only [encodable, encodableItems_eq_map, dictItems_map, List.all_map]
  rfl

theorem print_dict (items : List (PyKey × PyVal)) :
    (PyVal.dict items).print style =
      ch '\x7b' :: (commaSeparated style.pad
        ((dictItems items).map fun item => member style (item.1, item.2.print style)) ++
          [ch '\x7d']) := by
  simp only [print, printItems_eq_map, dictItems_map, List.map_map]
  rfl

theorem norm_dict (items : List (PyKey × PyVal)) :
    (PyVal.dict items).norm =
      .dict ((dictItems items).map fun item =>
        (.str (joinSurrogates item.1.name), item.2.norm)) := by
  simp only [norm, normItems_eq_map, dictItems_map, List.map_map]
  rfl

end PyVal

end AiStorage.Lib
