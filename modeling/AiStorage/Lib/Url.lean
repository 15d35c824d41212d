import AiStorage.Lib.Path
import AiStorage.Lib.PyJsonLaws
import Mathlib.Data.List.TakeWhile

/-!
# URLs

`urllib.parse`: percent quoting, `urlsplit` and `parse_qs`. Quoted text reads back; unquoted
text reads back exactly when none of its characters means something to a URL.
-/
namespace AiStorage.Lib

/-! ## Percent quoting -/

def percent : CodePoint := ch '%'

def upperHex (n : Nat) : CodePoint := CodePoint.ofNat (if n < 10 then 48 + n else 55 + n)

/-- Letters, digits, `_`, `.`, `-`, `~` and the extra `/`. -/
def isSafeByte (b : UInt8) : Bool :=
  65 ≤ b.toNat && b.toNat ≤ 90 || 97 ≤ b.toNat && b.toNat ≤ 122 || 48 ≤ b.toNat && b.toNat ≤ 57 ||
    b.toNat = 95 || b.toNat = 46 || b.toNat = 45 || b.toNat = 126 || b.toNat = 47

def quoteByte (b : UInt8) : Text :=
  if isSafeByte b then [CodePoint.ofNat b.toNat]
  else [percent, upperHex (b.toNat / 16), upperHex (b.toNat % 16)]

/-- `quote(s, safe="/")`; `none` is `UnicodeEncodeError`. -/
def quote (s : Text) : Option Text := (encodeUtf8 s).map fun bytes => bytes.flatMap quoteByte

/-- The byte that three characters escape. -/
def escapeValue (a b c : CodePoint) : Option UInt8 :=
  if a = percent then do
    let high ← hexValue b
    let low ← hexValue c
    return UInt8.ofNat (high * 16 + low)
  else none

/-- `unquote_to_bytes` of ASCII text. -/
def unquoteBytes : Text → Bytes
  | a :: b :: c :: rest =>
    match escapeValue a b c with
    | some byte => byte :: unquoteBytes rest
    | none => UInt8.ofNat a.val :: unquoteBytes (b :: c :: rest)
  | a :: rest => UInt8.ofNat a.val :: unquoteBytes rest
  | [] => []

/-- `unquote`: each maximal run of ASCII characters is unquoted and decoded on its own. -/
def unquoteFrom (decode : Bytes → Option Text) (asciiRun : Text) : Text → Option Text
  | [] => decode (unquoteBytes asciiRun)
  | c :: rest =>
    if c.val < 128 then unquoteFrom decode (asciiRun ++ [c]) rest
    else do
      let front ← decode (unquoteBytes asciiRun)
      let back ← unquoteFrom decode [] rest
      return front ++ c :: back

def unquote (s : Text) : Text := (unquoteFrom (fun bytes => some (decodeUtf8Replace bytes)) [] s).getD []

/-- `unquote(s, errors="strict")`; `none` is `UnicodeDecodeError`. -/
def unquoteStrict (s : Text) : Option Text := unquoteFrom decodeUtf8 [] s

/-! ### Quoted text reads back -/

theorem hexValue_upperHex : ∀ n < 16, hexValue (upperHex n) = some n := by decide +kernel

theorem ascii_upperHex : ∀ n < 16, (upperHex n).val < 128 := by decide +kernel

theorem safe_val {b : UInt8} (safe : isSafeByte b = true) :
    b.toNat < 128 ∧ b.toNat ≠ 37 ∧ b.toNat ≠ 35 ∧ b.toNat ≠ 63 ∧ 32 < b.toNat := by
  simp only [isSafeByte, Bool.or_eq_true, Bool.and_eq_true, decide_eq_true_eq] at safe
  omega

theorem val_ofNat {n : Nat} (small : n < 128) : (CodePoint.ofNat n).val = n :=
  Nat.mod_eq_of_lt (by omega)

theorem ascii_quoteByte (b : UInt8) : Ascii (quoteByte b) := by
  have bound := b.toNat_lt
  unfold quoteByte
  split_ifs with safe
  · have small := (safe_val safe).1
    exact ascii_nil.cons (by rw [val_ofNat small]; exact small)
  · exact ((ascii_nil.cons (ascii_upperHex _ (by omega))).cons (ascii_upperHex _ (by omega))).cons
      (by decide)

variable {a c : CodePoint}

theorem escapeValue_plain (plain : a ≠ percent) (b c : CodePoint) :
    escapeValue a b c = none := if_neg plain

theorem unquoteBytes_plain (plain : a ≠ percent) (rest : Text) :
    unquoteBytes (a :: rest) = UInt8.ofNat a.val :: unquoteBytes rest := by
  rcases rest with _ | ⟨b, _ | ⟨c, more⟩⟩
  · simp [unquoteBytes]
  · simp [unquoteBytes]
  · simp [unquoteBytes, escapeValue_plain plain]

theorem unquoteBytes_quoteByte (b : UInt8) (rest : Text) :
    unquoteBytes (quoteByte b ++ rest) = b :: unquoteBytes rest := by
  have bound := b.toNat_lt
  unfold quoteByte
  split_ifs with safe
  · obtain ⟨small, other, -⟩ := safe_val safe
    have plain : CodePoint.ofNat b.toNat ≠ percent := by
      intro same
      have value := congrArg Fin.val same
      rw [val_ofNat small] at value
      exact other value
    rw [List.singleton_append, unquoteBytes_plain plain, val_ofNat small, UInt8.ofNat_toNat]
  · have value : escapeValue percent (upperHex (b.toNat / 16)) (upperHex (b.toNat % 16)) = some b := by
      simp only [escapeValue, if_true, hexValue_upperHex _ (show b.toNat / 16 < 16 by omega),
        hexValue_upperHex _ (show b.toNat % 16 < 16 by omega)]
      have whole : b.toNat / 16 * 16 + b.toNat % 16 = b.toNat := by omega
      change some (UInt8.ofNat _) = _
      rw [whole, UInt8.ofNat_toNat]
    simp [unquoteBytes, value]

theorem unquoteBytes_quoted (bytes : Bytes) : unquoteBytes (bytes.flatMap quoteByte) = bytes := by
  induction bytes with
  | nil => rfl
  | cons b rest ih => rw [List.flatMap_cons, unquoteBytes_quoteByte, ih]

theorem ascii_quoted_bytes (bytes : Bytes) : Ascii (bytes.flatMap quoteByte) := by
  intro c member
  obtain ⟨b, -, inside⟩ := List.mem_flatMap.mp member
  exact ascii_quoteByte b c inside

theorem unquoteFrom_ascii (decode : Bytes → Option Text) {s : Text} (ascii : Ascii s) (front : Text) :
    unquoteFrom decode front s = decode (unquoteBytes (front ++ s)) := by
  induction s generalizing front with
  | nil => rw [unquoteFrom, List.append_nil]
  | cons c rest ih =>
    have small : c.val < 128 := ascii c List.mem_cons_self
    rw [unquoteFrom, if_pos small, ih (fun d member => ascii d (List.mem_cons_of_mem _ member)),
      List.append_assoc, List.singleton_append]

section Quote

variable {s quoted : Text}

theorem quote_eq_some (done : quote s = some quoted) :
    ∃ bytes, encodeUtf8 s = some bytes ∧ quoted = bytes.flatMap quoteByte := by
  obtain ⟨bytes, encoded, same⟩ := Option.map_eq_some_iff.mp done
  exact ⟨bytes, encoded, same.symm⟩

theorem unquote_quote (done : quote s = some quoted) : unquote quoted = s := by
  obtain ⟨bytes, encoded, rfl⟩ := quote_eq_some done
  rw [unquote, unquoteFrom_ascii _ (ascii_quoted_bytes bytes), List.nil_append, unquoteBytes_quoted,
    decodeUtf8Replace_encodeUtf8 encoded]
  rfl

theorem unquoteStrict_quote (done : quote s = some quoted) : unquoteStrict quoted = some s := by
  obtain ⟨bytes, encoded, rfl⟩ := quote_eq_some done
  rw [unquoteStrict, unquoteFrom_ascii _ (ascii_quoted_bytes bytes), List.nil_append,
    unquoteBytes_quoted, decodeUtf8_encodeUtf8 encoded]

end Quote

/-! ### Plain text and the length of unquoted text -/

/-- An escape stands somewhere in the text. -/
def hasEscape : Text → Bool
  | a :: b :: c :: rest => (escapeValue a b c).isSome || hasEscape (b :: c :: rest)
  | _ => false

theorem hasEscape_of_not_mem {s : Text} (absent : percent ∉ s) : hasEscape s = false := by
  induction s with
  | nil => rfl
  | cons a rest ih =>
    have later := ih fun member => absent (List.mem_cons_of_mem _ member)
    rcases rest with _ | ⟨b, _ | ⟨c, more⟩⟩
    · rfl
    · rfl
    · have first : a ≠ percent := fun same => absent (same ▸ List.mem_cons_self)
      rw [hasEscape, escapeValue_plain first, later]
      rfl

theorem unquoteBytes_of_plain {s : Text} (plain : hasEscape s = false) :
    unquoteBytes s = s.map fun c => UInt8.ofNat c.val := by
  induction s using unquoteBytes.induct with
  | case1 a b c rest byte escape ih => simp [hasEscape, escape] at plain
  | case2 a b c rest none ih =>
    simp only [hasEscape, none, Option.isSome_none, Bool.false_or] at plain
    simp only [unquoteBytes, none, ih plain, List.map_cons]
  | case3 a rest short ih =>
    rcases rest with _ | ⟨b, _ | ⟨c, more⟩⟩
    · rfl
    · rfl
    · exact absurd rfl (short b c more)
  | case4 => rfl

theorem length_unquoteBytes (s : Text) :
    (unquoteBytes s).length ≤ s.length ∧
      (hasEscape s = true → (unquoteBytes s).length < s.length) := by
  induction s using unquoteBytes.induct with
  | case1 a b c rest byte escape ih =>
    have short := ih.1
    simp only [unquoteBytes, escape, List.length_cons]
    exact ⟨by omega, fun _ => by omega⟩
  | case2 a b c rest none ih =>
    simp only [unquoteBytes, none, hasEscape, Option.isSome_none, Bool.false_or, List.length_cons]
      at ih ⊢
    exact ⟨by omega, fun escape => by have := ih.2 escape; omega⟩
  | case3 a rest short ih =>
    rcases rest with _ | ⟨b, _ | ⟨c, more⟩⟩
    · exact ⟨le_rfl, fun escape => absurd escape Bool.false_ne_true⟩
    · exact ⟨le_rfl, fun escape => absurd escape Bool.false_ne_true⟩
    · exact absurd rfl (short b c more)
  | case4 => exact ⟨le_rfl, fun escape => absurd escape Bool.false_ne_true⟩

theorem length_decodeParts (fuel : Nat) (bytes : Bytes) : (decodeParts fuel bytes).length ≤ fuel := by
  induction fuel generalizing bytes with
  | zero => simp [decodeParts]
  | succ fuel ih =>
    cases bytes with
    | nil => simp [decodeParts]
    | cons lead rest =>
      simp only [decodeParts, List.length_cons]
      exact Nat.succ_le_succ (ih _)

theorem length_decodeUtf8Replace (bytes : Bytes) : (decodeUtf8Replace bytes).length ≤ bytes.length := by
  rw [decodeUtf8Replace, List.length_map]
  exact length_decodeParts _ _

theorem hexValue_of_not_ascii (high : ¬ c.val < 128) : hexValue c = none := by
  unfold hexValue
  rw [if_neg (by omega), if_neg (by omega), if_neg (by omega)]

theorem ne_percent_of_not_ascii (high : ¬ c.val < 128) : c ≠ percent := by
  rintro rfl
  exact high (by decide)

/-- A character that belongs to no escape. -/
def breaksEscape (c : CodePoint) : Prop := c ≠ percent ∧ hexValue c = none

theorem breaksEscape_of_not_ascii (high : ¬ c.val < 128) : breaksEscape c :=
  ⟨ne_percent_of_not_ascii high, hexValue_of_not_ascii high⟩

theorem breaksEscape_slash : breaksEscape slash := ⟨by decide, by decide⟩

theorem escapeValue_of_breaks {b : CodePoint}
    (apart : breaksEscape a ∨ breaksEscape b ∨ breaksEscape c) : escapeValue a b c = none := by
  unfold escapeValue
  split_ifs with start
  · rcases apart with first | second | third
    · exact absurd start first.1
    · rw [second.2]
      rfl
    · rw [third.2]
      cases hexValue b <;> rfl
  · rfl

theorem hasEscape_append_cons (apart : breaksEscape c) (front rest : Text) :
    hasEscape (front ++ c :: rest) = (hasEscape front || hasEscape rest) := by
  have beyond : hasEscape (c :: rest) = hasEscape rest := by
    rcases rest with _ | ⟨a, _ | ⟨b, more⟩⟩
    · rfl
    · rfl
    · simp [hasEscape, escapeValue_of_breaks (.inl apart)]
  induction front with
  | nil => simpa [hasEscape] using beyond
  | cons a front ih =>
    rcases front with _ | ⟨b, _ | ⟨d, more⟩⟩
    · rcases rest with _ | ⟨e, more⟩
      · rfl
      · simpa [hasEscape, escapeValue_of_breaks (.inr (.inl apart))] using beyond
    · simp only [List.cons_append, List.nil_append, hasEscape,
        escapeValue_of_breaks (.inr (.inr apart)), Option.isSome_none, Bool.false_or] at ih ⊢
      exact ih
    · simp only [List.cons_append, hasEscape] at ih ⊢
      rw [ih, Bool.or_assoc]

theorem unquoteFrom_of_plain {s front : Text} (ascii : Ascii front)
    (plain : hasEscape (front ++ s) = false) :
    unquoteFrom (fun bytes => some (decodeUtf8Replace bytes)) front s = some (front ++ s) := by
  have decoded : ∀ {t : Text}, Ascii t → hasEscape t = false →
      decodeUtf8Replace (unquoteBytes t) = t := by
    intro t low none
    rw [unquoteBytes_of_plain none, ← flatMap_utf8Char_of_ascii low]
    exact decodeUtf8Replace_encodeUtf8 (encodeUtf8_of_ascii low)
  induction s generalizing front with
  | nil =>
    rw [List.append_nil] at plain ⊢
    rw [unquoteFrom, decoded ascii plain]
  | cons c rest ih =>
    unfold unquoteFrom
    split_ifs with small
    · rw [ih (ascii.append (ascii_nil.cons small)) (by simpa using plain), List.append_assoc,
        List.singleton_append]
    · rw [hasEscape_append_cons (breaksEscape_of_not_ascii small), Bool.or_eq_false_iff] at plain
      rw [decoded ascii plain.1, ih ascii_nil plain.2]
      rfl

theorem unquote_of_plain {s : Text} (plain : hasEscape s = false) : unquote s = s := by
  rw [unquote, unquoteFrom_of_plain ascii_nil plain]
  rfl

theorem length_unquoteFrom (s front : Text) :
    ∃ t, unquoteFrom (fun bytes => some (decodeUtf8Replace bytes)) front s = some t ∧
      t.length ≤ front.length + s.length ∧
      (hasEscape (front ++ s) = true → t.length < front.length + s.length) := by
  have decoded : ∀ t : Text, (decodeUtf8Replace (unquoteBytes t)).length ≤ t.length ∧
      (hasEscape t = true → (decodeUtf8Replace (unquoteBytes t)).length < t.length) := by
    intro t
    have bytes := length_decodeUtf8Replace (unquoteBytes t)
    have run := length_unquoteBytes t
    exact ⟨bytes.trans run.1, fun escape => bytes.trans_lt (run.2 escape)⟩
  induction s generalizing front with
  | nil =>
    refine ⟨_, rfl, ?_⟩
    simpa using decoded front
  | cons c rest ih =>
    unfold unquoteFrom
    split_ifs with small
    · obtain ⟨t, read, short, shorter⟩ := ih (front ++ [c])
      rw [List.length_append, List.length_singleton] at short shorter
      rw [List.append_assoc, List.singleton_append] at shorter
      refine ⟨t, read, ?_, fun escape => ?_⟩
      · rw [List.length_cons]
        omega
      · have := shorter escape
        rw [List.length_cons]
        omega
    · obtain ⟨t, read, short, shorter⟩ := ih []
      obtain ⟨low, lower⟩ := decoded front
      rw [List.length_nil, Nat.zero_add] at short shorter
      refine ⟨decodeUtf8Replace (unquoteBytes front) ++ c :: t, by rw [read]; rfl, ?_, fun escape => ?_⟩
      · rw [List.length_append, List.length_cons, List.length_cons]
        omega
      · rw [hasEscape_append_cons (breaksEscape_of_not_ascii small), Bool.or_eq_true] at escape
        rw [List.length_append, List.length_cons, List.length_cons]
        rcases escape with inFront | inRest
        · have := lower inFront
          omega
        · have := shorter inRest
          omega

theorem length_unquote (s : Text) :
    (unquote s).length ≤ s.length ∧ (hasEscape s = true → (unquote s).length < s.length) := by
  obtain ⟨t, read, short, shorter⟩ := length_unquoteFrom s []
  rw [List.length_nil, Nat.zero_add] at short shorter
  rw [unquote, read]
  exact ⟨short, shorter⟩

theorem decodeUtf8Replace_cons {b : UInt8} (low : b.toNat < 128) (rest : Bytes) :
    decodeUtf8Replace (b :: rest) = CodePoint.ofNat b.toNat :: decodeUtf8Replace rest := by
  have next : nextUtf8 b rest = (some (CodePoint.ofNat b.toNat), rest) := by
    unfold nextUtf8
    rw [if_pos low]
  unfold decodeUtf8Replace
  rw [List.length_cons, decodeParts, next]
  rfl

theorem decode_unquoteBytes_slash (s : Text) :
    decodeUtf8Replace (unquoteBytes (slash :: s)) = slash :: decodeUtf8Replace (unquoteBytes s) := by
  rw [unquoteBytes_plain breaksEscape_slash.1]
  exact decodeUtf8Replace_cons (by decide) _

theorem unquoteFrom_slash (front s : Text) :
    ∃ t, unquoteFrom (fun bytes => some (decodeUtf8Replace bytes)) (slash :: front) s =
      some (slash :: t) := by
  induction s generalizing front with
  | nil => exact ⟨_, congrArg some (decode_unquoteBytes_slash front)⟩
  | cons c rest ih =>
    unfold unquoteFrom
    split_ifs
    · exact ih (front ++ [c])
    · obtain ⟨t, read, -⟩ := length_unquoteFrom rest []
      refine ⟨decodeUtf8Replace (unquoteBytes front) ++ c :: t, ?_⟩
      rw [read, decode_unquoteBytes_slash]
      rfl

theorem head_unquote_slash (s : Text) : (unquote (slash :: s)).head? = some slash := by
  obtain ⟨t, read⟩ := unquoteFrom_slash [] s
  have start : unquoteFrom (fun bytes => some (decodeUtf8Replace bytes)) [] (slash :: s) =
      unquoteFrom (fun bytes => some (decodeUtf8Replace bytes)) [slash] s := by
    rw [unquoteFrom, if_pos (by decide)]
    rfl
  rw [unquote, start, read]
  rfl

/-! ## Splitting a URL -/

structure SplitUrl where
  scheme : Text
  netloc : Text
  path : Text
  query : Text
  fragment : Text
  deriving DecidableEq

def isAsciiLetter (c : CodePoint) : Bool := 65 ≤ c.val && c.val ≤ 90 || 97 ≤ c.val && c.val ≤ 122

def isSchemeChar (c : CodePoint) : Bool :=
  isAsciiLetter c || isDigit c || c = ch '+' || c = ch '-' || c = ch '.'

def lowerAscii (c : CodePoint) : CodePoint :=
  if 65 ≤ c.val ∧ c.val ≤ 90 then CodePoint.ofNat (c.val + 32) else c

def splitScheme (url : Text) : Text × Text :=
  let before := url.takeWhile (· ≠ ch ':')
  let after := url.dropWhile (· ≠ ch ':')
  if !after.isEmpty && before.head?.any isAsciiLetter && before.all isSchemeChar then
    (before.map lowerAscii, after.drop 1)
  else ([], url)

/-- `s.split(c, 1)`, with an empty second part when `c` does not occur. -/
def cutAt (c : CodePoint) (s : Text) : Text × Text :=
  (s.takeWhile (· ≠ c), (s.dropWhile (· ≠ c)).drop 1)

/-- The characters that `urlsplit` drops wherever they stand: tab, line feed and carriage
return. -/
def isUnsafe (c : CodePoint) : Bool := c.val = 9 || c.val = 10 || c.val = 13

def endsNetloc (c : CodePoint) : Bool := c = slash || c = ch '?' || c = ch '#'

def splitNetloc (url : Text) : Text × Text :=
  if url.take 2 = [slash, slash] then
    ((url.drop 2).takeWhile fun c => !endsNetloc c, (url.drop 2).dropWhile fun c => !endsNetloc c)
  else ([], url)

/-- `urlsplit(url)`; `none` is the `ValueError` of an unmatched bracket. A bracketed host
and a host outside ASCII are not checked further. -/
def urlsplit (url : Text) : Option SplitUrl :=
  let (scheme, url) :=
    splitScheme ((url.dropWhile fun c => c.val ≤ 32).filter fun c => !isUnsafe c)
  let (netloc, url) := splitNetloc url
  let (url, fragment) := cutAt (ch '#') url
  let (path, query) := cutAt (ch '?') url
  if netloc.contains (ch '[') = netloc.contains (ch ']') then
    some { scheme, netloc, path, query, fragment }
  else none

def queryText (s : Text) : Text := unquote (s.map fun c => if c = ch '+' then ch ' ' else c)

/-- The value of one item of a query, if it has the name; blank values are dropped. -/
def queryItem (name item : Text) : Option Text :=
  let (key, value) := cutAt (ch '=') item
  if !value.isEmpty && queryText key = name then some (queryText value) else none

/-- The first value of a field, as `parse_qs(query)[name][0]` gives it. -/
def queryField (name query : Text) : Option Text :=
  (query.splitOn (ch '&')).findSome? (queryItem name)

theorem cutAt_of_not_mem {s : Text} (absent : c ∉ s) : cutAt c s = (s, []) := by
  have all : ∀ d ∈ s, (decide (d ≠ c)) = true := fun d member =>
    decide_eq_true fun same => absent (same ▸ member)
  have none : s.dropWhile (· ≠ c) = [] := List.dropWhile_eq_nil_iff.mpr all
  rw [cutAt, none, List.takeWhile_eq_self_iff.mpr all]
  rfl

theorem cutAt_append {front : Text} (absent : c ∉ front) (rest : Text) :
    cutAt c (front ++ c :: rest) = (front, rest) := by
  have all : ∀ d ∈ front, (decide (d ≠ c)) = true := fun d member =>
    decide_eq_true fun same => absent (same ▸ member)
  rw [cutAt, List.takeWhile_append_of_pos all, List.dropWhile_append_of_pos all]
  simp

theorem length_cutAt (c : CodePoint) (s : Text) :
    (cutAt c s).1.length ≤ s.length ∧ (c ∈ s → (cutAt c s).1.length < s.length) := by
  refine ⟨(List.takeWhile_sublist _).length_le, fun member => ?_⟩
  by_contra long
  have whole := (List.takeWhile_prefix (· ≠ c) : s.takeWhile _ <+: s).eq_of_length_le (not_lt.mp long)
  have kept := List.takeWhile_eq_self_iff.mp whole c member
  simp at kept

/-- What a scheme consists of, in lower case. -/
def schemeOk (scheme : Text) : Bool :=
  scheme.head?.any isAsciiLetter && scheme.all fun c => isSchemeChar c && lowerAscii c = c

/-- What an authority may consist of so that it splits off as it is. -/
def netlocOk (netloc : Text) : Bool :=
  netloc.all fun c => !endsNetloc c && !isUnsafe c && c ≠ ch '[' && c ≠ ch ']'

section Split

variable {scheme netloc rest : Text}

theorem splitScheme_append (ok : schemeOk scheme = true) :
    splitScheme (scheme ++ ch ':' :: rest) = (scheme, rest) := by
  simp only [schemeOk, Bool.and_eq_true, List.all_eq_true, decide_eq_true_eq] at ok
  have apart : ∀ c ∈ scheme, (decide (c ≠ ch ':')) = true := by
    intro c member
    refine decide_eq_true fun same => ?_
    have known := (ok.2 c member).1
    rw [same] at known
    exact absurd known (by decide)
  have lower : scheme.map lowerAscii = scheme :=
    (List.map_congr_left fun c member => (ok.2 c member).2).trans (List.map_id _)
  have known : scheme.all isSchemeChar = true :=
    List.all_eq_true.mpr fun c member => (ok.2 c member).1
  have before : (scheme ++ ch ':' :: rest).takeWhile (· ≠ ch ':') = scheme := by
    rw [List.takeWhile_append_of_pos apart]
    simp
  have after : (scheme ++ ch ':' :: rest).dropWhile (· ≠ ch ':') = ch ':' :: rest := by
    rw [List.dropWhile_append_of_pos apart]
    simp
  simp only [splitScheme, before, after, ok.1, known, lower]
  rfl

theorem splitNetloc_append (ok : netlocOk netloc = true) :
    splitNetloc (slash :: slash :: (netloc ++ slash :: rest)) = (netloc, slash :: rest) := by
  have inside : ∀ c ∈ netloc, (!endsNetloc c) = true := by
    intro c member
    have known := List.all_eq_true.mp ok c member
    simp only [Bool.and_eq_true] at known
    exact known.1.1.1
  have stop : (!endsNetloc slash) = false := by decide
  simp only [splitNetloc, List.take_succ_cons, List.take_zero, if_true, List.drop_succ_cons,
    List.drop_zero]
  rw [List.takeWhile_append_of_pos inside, List.dropWhile_append_of_pos inside,
    List.takeWhile_cons_of_neg (by simp [stop]), List.dropWhile_cons_of_neg (by simp [stop]),
    List.append_nil]

theorem filter_scheme (ok : schemeOk scheme = true) :
    scheme.filter (fun c => !isUnsafe c) = scheme := by
  simp only [schemeOk, Bool.and_eq_true, List.all_eq_true] at ok
  refine List.filter_eq_self.mpr fun c member => ?_
  have known := (ok.2 c member).1
  cases bad : isUnsafe c with
  | false => rfl
  | true =>
    simp only [isUnsafe, Bool.or_eq_true, decide_eq_true_eq] at bad
    rcases bad with (tab | newline) | carriage
    · obtain rfl : c = CodePoint.ofNat 9 := Fin.ext tab
      exact absurd known (by decide)
    · obtain rfl : c = CodePoint.ofNat 10 := Fin.ext newline
      exact absurd known (by decide)
    · obtain rfl : c = CodePoint.ofNat 13 := Fin.ext carriage
      exact absurd known (by decide)

theorem dropWhile_scheme (ok : schemeOk scheme = true) :
    (scheme ++ rest).dropWhile (fun c => c.val ≤ 32) = scheme ++ rest := by
  simp only [schemeOk, Bool.and_eq_true] at ok
  cases scheme with
  | nil => exact absurd ok.1 Bool.false_ne_true
  | cons c more =>
    have letter : isAsciiLetter c = true := ok.1
    simp only [isAsciiLetter, Bool.or_eq_true, Bool.and_eq_true, decide_eq_true_eq] at letter
    exact List.dropWhile_cons_of_neg (by simp only [decide_eq_true_eq]; omega)

theorem urlsplit_absolute (known : schemeOk scheme = true) (host : netlocOk netloc = true) :
    urlsplit (scheme ++ ch ':' :: slash :: slash :: (netloc ++ slash :: rest)) =
      some {
        scheme, netloc
        path := (cutAt (ch '?') (cutAt (ch '#')
          ((slash :: rest).filter fun c => !isUnsafe c)).1).1
        query := (cutAt (ch '?') (cutAt (ch '#')
          ((slash :: rest).filter fun c => !isUnsafe c)).1).2
        fragment := (cutAt (ch '#') ((slash :: rest).filter fun c => !isUnsafe c)).2 } := by
  have keptHost : netloc.filter (fun c => !isUnsafe c) = netloc := by
    refine List.filter_eq_self.mpr fun c member => ?_
    have ok := List.all_eq_true.mp host c member
    simp only [Bool.and_eq_true] at ok
    exact ok.1.1.2
  have brackets : netloc.contains (ch '[') = netloc.contains (ch ']') := by
    have opening : ch '[' ∉ netloc := fun member => by
      have ok := List.all_eq_true.mp host _ member
      simp at ok
    have closing : ch ']' ∉ netloc := fun member => by
      have ok := List.all_eq_true.mp host _ member
      simp at ok
    simp [opening, closing]
  have slashKept : (slash :: rest).filter (fun c => !isUnsafe c) =
      slash :: rest.filter fun c => !isUnsafe c := List.filter_cons_of_pos (by decide)
  have kept : (scheme ++ ch ':' :: slash :: slash :: (netloc ++ slash :: rest)).filter
      (fun c => !isUnsafe c) = scheme ++ ch ':' :: slash :: slash ::
        (netloc ++ slash :: rest.filter fun c => !isUnsafe c) := by
    rw [List.filter_append, filter_scheme known, List.filter_cons_of_pos (by decide),
      List.filter_cons_of_pos (by decide), List.filter_cons_of_pos (by decide), List.filter_append,
      keptHost, slashKept]
  simp only [urlsplit, dropWhile_scheme known, kept, splitScheme_append known,
    splitNetloc_append host, brackets, if_true, slashKept]

end Split

/-! ### Fields of a query -/

/-- Text that stands for itself in a query. -/
def plainQuery (s : Text) : Bool :=
  s.all fun c => c ≠ percent && c ≠ ch '+' && c ≠ ch '&' && c ≠ ch '='

section Query

variable {name value : Text}

theorem not_mem_plainQuery (plain : plainQuery value = true) :
    percent ∉ value ∧ ch '+' ∉ value ∧ ch '&' ∉ value ∧ ch '=' ∉ value := by
  have apart : ∀ c ∈ value, c ≠ percent ∧ c ≠ ch '+' ∧ c ≠ ch '&' ∧ c ≠ ch '=' := by
    intro c member
    have known := List.all_eq_true.mp plain c member
    simp only [Bool.and_eq_true, decide_eq_true_eq] at known
    exact ⟨known.1.1.1, known.1.1.2, known.1.2, known.2⟩
  exact ⟨fun m => (apart _ m).1 rfl, fun m => (apart _ m).2.1 rfl, fun m => (apart _ m).2.2.1 rfl,
    fun m => (apart _ m).2.2.2 rfl⟩

theorem queryText_of_plain (plain : plainQuery value = true) : queryText value = value := by
  obtain ⟨percents, pluses, -⟩ := not_mem_plainQuery plain
  have same : (value.map fun c => if c = ch '+' then ch ' ' else c) = value := by
    conv_rhs => rw [← List.map_id value]
    refine List.map_congr_left fun c member => if_neg ?_
    rintro rfl
    exact pluses member
  rw [queryText, same, unquote_of_plain (hasEscape_of_not_mem percents)]

theorem queryItem_eq (key : plainQuery name = true) (plain : plainQuery value = true) (wanted : Text) :
    queryItem wanted (name ++ ch '=' :: value) =
      if !value.isEmpty && name = wanted then some value else none := by
  simp only [queryItem, cutAt_append (not_mem_plainQuery key).2.2.2, queryText_of_plain key,
    queryText_of_plain plain]

theorem not_mem_item (key : plainQuery name = true) (plain : plainQuery value = true) :
    ∀ c ∈ name ++ ch '=' :: value, (c == ch '&') = false := by
  have absent : ch '&' ∉ name ++ ch '=' :: value := by
    rw [List.mem_append, List.mem_cons, not_or, not_or]
    exact ⟨(not_mem_plainQuery key).2.2.1, by decide, (not_mem_plainQuery plain).2.2.1⟩
  intro c member
  rw [beq_eq_false_iff_ne]
  rintro rfl
  exact absent member

theorem queryField_last (key : plainQuery name = true) (plain : plainQuery value = true)
    (filled : value ≠ []) : queryField name (name ++ ch '=' :: value) = some value := by
  have single : (name ++ ch '=' :: value).splitOn (ch '&') = [name ++ ch '=' :: value] :=
    List.splitOnP_eq_singleton (not_mem_item key plain)
  rw [queryField, single, List.findSome?_singleton, queryItem_eq key plain]
  simp [filled]

theorem queryField_cons (key : plainQuery name = true) (plain : plainQuery value = true)
    (filled : value ≠ []) (wanted rest : Text) :
    queryField wanted (name ++ ch '=' :: value ++ ch '&' :: rest) =
      if name = wanted then some value else queryField wanted rest := by
  have first : (name ++ ch '=' :: value ++ ch '&' :: rest).splitOn (ch '&') =
      (name ++ ch '=' :: value) :: rest.splitOn (ch '&') :=
    List.splitOnP_append_cons_of_forall_mem (not_mem_item key plain) _ (by simp) _
  rw [queryField, first, List.findSome?_cons, queryItem_eq key plain]
  by_cases same : name = wanted
  · simp [same, filled]
  · simp [same, queryField]

theorem plainQuery_decimal (n : Nat) : plainQuery (decimal n) = true ∧ decimal n ≠ [] := by
  obtain ⟨head, tail, shape, -⟩ := decimal_shape n
  refine ⟨List.all_eq_true.mpr fun c member => ?_, by rw [shape]; exact List.cons_ne_nil _ _⟩
  have digit := isDigit_of_mem_decimal member
  simp only [isDigit, Bool.and_eq_true, decide_eq_true_eq] at digit
  have apart : ∀ d : CodePoint, d.val < 48 ∨ d.val = 61 → c ≠ d := by
    rintro d other rfl
    omega
  simp [apart percent (by decide), apart (ch '+') (by decide), apart (ch '&') (by decide),
    apart (ch '=') (by decide)]

end Query

/-- A character that stays in the path of a URL. -/
def isPathChar (c : CodePoint) : Bool := !isUnsafe c && c ≠ ch '#' && c ≠ ch '?'

theorem filter_pathChars {s : Text} (all : s.all isPathChar = true) :
    s.filter (fun c => !isUnsafe c) = s := by
  refine List.filter_eq_self.mpr fun c member => ?_
  have kept := List.all_eq_true.mp all c member
  simp only [isPathChar, Bool.and_eq_true] at kept
  exact kept.1.1

theorem not_mem_pathChars {s : Text} (all : s.all isPathChar = true) : ch '#' ∉ s ∧ ch '?' ∉ s := by
  constructor
  · exact fun member => absurd (List.all_eq_true.mp all _ member) (by decide)
  · exact fun member => absurd (List.all_eq_true.mp all _ member) (by decide)

/-- The path that is read back from a URL ending in unquoted text. -/
def readPath (s : Text) : Text :=
  unquote (cutAt (ch '?') (cutAt (ch '#') (s.filter fun c => !isUnsafe c)).1).1

/-- Text that a URL carries as its path without quoting. -/
def plainPath (s : Text) : Bool := s.all isPathChar && !hasEscape s

theorem readPath_of_plain {s : Text} (plain : plainPath s = true) : readPath s = s := by
  simp only [plainPath, Bool.and_eq_true, Bool.not_eq_true'] at plain
  obtain ⟨fragment, query⟩ := not_mem_pathChars plain.1
  rw [readPath, filter_pathChars plain.1, cutAt_of_not_mem fragment, cutAt_of_not_mem query,
    unquote_of_plain plain.2]

theorem length_readPath {s : Text} (other : plainPath s = false) : (readPath s).length < s.length := by
  have unquoted := length_unquote (cutAt (ch '?') (cutAt (ch '#') (s.filter fun c => !isUnsafe c)).1).1
  have query := length_cutAt (ch '?') (cutAt (ch '#') (s.filter fun c => !isUnsafe c)).1
  have fragment := length_cutAt (ch '#') (s.filter fun c => !isUnsafe c)
  have kept : (s.filter fun c => !isUnsafe c).length ≤ s.length := List.length_filter_le _ _
  rw [readPath]
  by_cases clean : s.all isPathChar = true
  · obtain ⟨noFragment, noQuery⟩ := not_mem_pathChars clean
    rw [filter_pathChars clean, cutAt_of_not_mem noFragment, cutAt_of_not_mem noQuery]
    refine (length_unquote s).2 ?_
    simpa [plainPath, clean] using other
  · -- one of the characters was dropped or ended the path
    simp only [List.all_eq_true, not_forall] at clean
    obtain ⟨c, member, bad⟩ := clean
    by_cases dropped : isUnsafe c = true
    · have lost : (s.filter fun c => !isUnsafe c).length < s.length :=
        List.length_filter_lt_length_iff_exists.mpr ⟨c, member, by simp [dropped]⟩
      omega
    · have inside : c ∈ s.filter fun c => !isUnsafe c :=
        List.mem_filter.mpr ⟨member, by simpa using dropped⟩
      have ends : c = ch '#' ∨ c = ch '?' := by
        by_contra neither
        rw [not_or] at neither
        exact bad (by simp [isPathChar, dropped, neither])
      rcases ends with rfl | rfl
      · have := fragment.2 inside
        omega
      · by_cases cut : ch '#' ∈ s.filter fun c => !isUnsafe c
        · have := fragment.2 cut
          omega
        · rw [cutAt_of_not_mem cut] at query unquoted ⊢
          exact unquoted.1.trans_lt ((query.2 inside).trans_le kept)

theorem head_readPath (s : Text) : (readPath (slash :: s)).head? = some slash := by
  have fragment : ∃ t, (cutAt (ch '#') ((slash :: s).filter fun c => !isUnsafe c)).1 = slash :: t := by
    rw [List.filter_cons_of_pos (by decide), cutAt, List.takeWhile_cons_of_pos (by decide)]
    exact ⟨_, rfl⟩
  obtain ⟨t, fragment⟩ := fragment
  rw [readPath, fragment, cutAt, List.takeWhile_cons_of_pos (by decide)]
  exact head_unquote_slash _

theorem quoted_pathChars {s quoted : Text} (done : quote s = some quoted) :
    quoted.all isPathChar = true := by
  obtain ⟨bytes, -, rfl⟩ := quote_eq_some done
  have hex : ∀ n < 16, isPathChar (upperHex n) = true := by decide +kernel
  refine List.all_eq_true.mpr fun c member => ?_
  obtain ⟨b, -, inside⟩ := List.mem_flatMap.mp member
  have bound := b.toNat_lt
  unfold quoteByte at inside
  split_ifs at inside with safe
  · rw [List.mem_singleton.mp inside]
    obtain ⟨small, -, hash, question, printable⟩ := safe_val safe
    have value := val_ofNat small
    have apart : ∀ d : Char, b.toNat ≠ (ch d).val → CodePoint.ofNat b.toNat ≠ ch d := by
      intro d other same
      exact other (value ▸ congrArg Fin.val same)
    have kept : isUnsafe (CodePoint.ofNat b.toNat) = false := by
      simp only [isUnsafe, value, Bool.or_eq_false_iff, decide_eq_false_iff_not]
      omega
    simp [isPathChar, kept, apart '#' hash, apart '?' question]
  · simp only [List.mem_cons, List.not_mem_nil, or_false] at inside
    rcases inside with rfl | rfl | rfl
    · decide
    · exact hex _ (by omega)
    · exact hex _ (by omega)

end AiStorage.Lib
